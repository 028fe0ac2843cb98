import Storyboard.Proofs.Script.Derivation
import Storyboard.Proofs.Script.Passes

namespace Storyboard.Script

open Grammar (braced Dimensions SceneTree ScriptTree)

/-- `front` ends right after the closing brace of the video block that the script starts with. -/
def EndsVideo (front : List Char) (s : Scanned) : Prop :=
  ∃ n sizes, s.tokens.take (n + 1) = .word "video" :: braced Dimensions.tokens sizes ∧
    s.lexemes[n]?.map (·.span.stop) = some (byteCount front)

/-- The tokens are a script, and the scenes are those of its scene blocks, one for each and in their
order, however it is derived. -/
def InWrittenOrder (tokens : List Token) (scenes : List Scene) : Prop :=
  (∃ t : ScriptTree, t.tokens = tokens ∧ t.Admissible) ∧
    ∀ t : ScriptTree, t.tokens = tokens → t.Admissible →
      t.scenes.length = scenes.length ∧
        List.Forall₂ (fun block scene => SceneTree.scene? block = some scene) t.scenes scenes

variable {p q : Program} {ts us : List Token} {sizes sizes' : List Dimensions}

/-- The first closing brace is that of the video block. -/
theorem dropWhile_video (sizes : List Dimensions) (ts : List Token) :
    (braced Dimensions.tokens sizes ++ ts).dropWhile (fun t => decide (t ≠ .mark .closeBrace)) =
      .mark .closeBrace :: ts := by
  have whole : braced Dimensions.tokens sizes ++ ts =
      (.mark .openBrace :: sizes.flatMap Dimensions.tokens) ++ .mark .closeBrace :: ts := by
    simp [braced]
  have inside : ∀ t ∈ .mark .openBrace :: sizes.flatMap Dimensions.tokens,
      decide (t ≠ .mark .closeBrace) = true := by
    rintro t listed
    refine decide_eq_true fun closes => ?_
    subst closes
    simp [Dimensions.tokens] at listed
  rw [whole, dropWhile_row inside (by simp)]

/-- The tokens after the video block are the same however the block is read. -/
theorem after_video (same : braced Dimensions.tokens sizes ++ ts =
    braced Dimensions.tokens sizes' ++ us) : ts = us := by
  have first := dropWhile_video sizes ts
  rw [same, dropWhile_video] at first
  exact (List.cons.inj first).2.symm

/-- A derivation whose scene blocks are followed by further ones. -/
def continued (t : ScriptTree) (more : List SceneTree) : ScriptTree :=
  { t with others := t.others ++ more }

theorem scenes_continued (t : ScriptTree) (more : List SceneTree) :
    (continued t more).scenes = t.scenes ++ more :=
  rfl

theorem tokens_continued (t : ScriptTree) (more : List SceneTree) :
    (continued t more).tokens = t.tokens ++ more.flatMap SceneTree.tokens := by
  rw [ScriptTree.tokens, scenes_continued, List.flatMap_append, ScriptTree.tokens,
    List.cons_append, List.append_assoc]
  rfl

theorem admissible_continued {t : ScriptTree} {more : List SceneTree} (ht : t.Admissible)
    (hmore : ∀ s ∈ more, s.Admissible) : (continued t more).Admissible := by
  refine ⟨ht.dimensions, ht.sizes, fun s listed => ?_⟩
  rw [scenes_continued] at listed
  rcases List.mem_append.1 listed with first | later
  · exact ht.scenes s first
  · exact hmore s later

/-- The scenes of the second script follow those of the first one, whose canvas stays. -/
theorem program?_continued {t t' : ScriptTree} (ht : t.program? = some p)
    (ht' : t'.program? = some q) :
    (continued t t'.scenes).program? = some ⟨p.canvas, p.scenes ++ q.scenes⟩ := by
  obtain ⟨canvas, scenes⟩ := Reader.program?_eq_some.1 ht
  obtain ⟨-, scenes'⟩ := Reader.program?_eq_some.1 ht'
  refine Reader.program?_eq_some.2 ⟨canvas, ?_⟩
  rw [scenes_continued, List.mapM_append, scenes, scenes']
  rfl

/-- What follows a video block may follow any script. -/
theorem readProgram_continued (scanned : ∀ t ∈ ts, t.Scanned)
    (scanned' : ∀ t ∈ .word "video" :: braced Dimensions.tokens sizes ++ us, t.Scanned)
    (first : readProgram ts = .ok p)
    (second : readProgram (.word "video" :: braced Dimensions.tokens sizes ++ us) = .ok q) :
    readProgram (ts ++ us) = .ok ⟨p.canvas, p.scenes ++ q.scenes⟩ := by
  obtain ⟨t, ⟨admissible, denotes⟩, rfl⟩ := (readProgram_eq_ok scanned).1 first
  obtain ⟨t', ⟨admissible', denotes'⟩, tokens⟩ := (readProgram_eq_ok scanned').1 second
  have blocks : t'.scenes.flatMap SceneTree.tokens = us := after_video (List.cons.inj tokens).2
  have all : ∀ u ∈ t.tokens ++ us, u.Scanned := by
    intro u listed
    rcases List.mem_append.1 listed with listed | listed
    · exact scanned u listed
    · exact scanned' u (List.mem_append_right _ listed)
  refine (readProgram_eq_ok all).2 ⟨continued t t'.scenes,
    ⟨admissible_continued admissible admissible'.scenes, program?_continued denotes denotes'⟩, ?_⟩
  rw [tokens_continued, blocks]

/-- The scenes of every script are those of its scene blocks, in the order in which they are
written. -/
theorem inWrittenOrder_of_readProgram (scanned : ∀ t ∈ ts, t.Scanned)
    (read : readProgram ts = .ok p) : InWrittenOrder ts p.scenes := by
  obtain ⟨derived, ⟨derivable, -⟩, same⟩ := (readProgram_eq_ok scanned).1 read
  refine ⟨⟨derived, same, derivable⟩, ?_⟩
  intro t tokens admissible
  obtain ⟨p', denotes⟩ := Reader.exists_program admissible
  have again := (readProgram_eq_ok scanned).2 ⟨t, ⟨admissible, denotes⟩, tokens⟩
  cases read.symm.trans again
  obtain ⟨-, scenes⟩ := Reader.program?_eq_some.1 denotes
  have related := (Reader.forall₂_mapM_iff (P := fun _ => True)).2 ⟨fun _ _ => trivial, scenes⟩
  exact ⟨related.length_eq, related.imp fun _ _ => And.right⟩

/-- After its video block a text is scanned as it would be alone. -/
theorem passes_of_endsVideo {front rest : List Char} {s : Scanned}
    (scans : scanText (front ++ rest) = .ok s) (ends : EndsVideo front s) :
    ∃ us sizes, Passes [] rest us ∧
      s.tokens = .word "video" :: braced Dimensions.tokens sizes ++ us := by
  obtain ⟨n, sizes, video, stops⟩ := ends
  obtain ⟨brace, listed, stop⟩ := Option.map_eq_some_iff.1 stops
  obtain ⟨inside, rfl⟩ := List.getElem?_eq_some_iff.1 listed
  have lexemes : s.lexemes = s.lexemes.take n ++ s.lexemes[n] :: s.lexemes.drop (n + 1) := by
    rw [List.cons_getElem_drop_succ, List.take_append_drop]
  obtain ⟨before, piece, after, divides⟩ := divides_of_scanText scans lexemes
  have whole := divides.whole
  rw [← List.append_assoc] at whole
  rw [divides.stop, Nat.zero_add] at stop
  have same : before ++ piece = front := eq_of_byteCount ⟨after, whole.symm⟩ ⟨rest, rfl⟩ stop
  rw [same] at whole
  refine ⟨s.tokens.drop (n + 1), sizes, ?_, ?_⟩
  · rw [List.append_cancel_left whole, Scanned.tokens, ← List.map_drop]
    exact divides.last
  · rw [← video, List.take_append_drop]

/-- A new line ends whatever a text ends with. -/
theorem passes_newline {cs rest : List Char} (first : Passes [] cs ts) (last : Passes [] rest us) :
    Passes [] (cs ++ '\n' :: rest) (ts ++ us) := by
  refine Passes.finish (first.before_other ?_ ?_) (last.blank (by decide))
  · intro piece trivia
    cases trivia with
    | blank blank => exact .blank blank
    | line inside => exact .line inside (.inr rfl)
    | block first => exact .block first
  · exact fun t piece cut => cut_of_spells cut.stands.spells rfl

/-- What follows the video block of a script may be put after another script, on a new line. -/
theorem scenes_continue :
    (∀ (first front rest : String) (p q : Program) (s : Scanned), parse first = .ok p →
      parse (front ++ rest) = .ok q → scanText (front ++ rest).toList = .ok s →
      EndsVideo front.toList s →
      parse (first ++ "\n" ++ rest) = .ok ⟨p.canvas, p.scenes ++ q.scenes⟩) ∧
    ∀ (source : String) (p : Program) (s : Scanned), parse source = .ok p →
      scanText source.toList = .ok s → InWrittenOrder s.tokens p.scenes := by
  constructor
  · intro first front rest p q s parsed parsed' scans' ends
    obtain ⟨s₀, scans, read⟩ := exists_scanText parsed
    have read' := (parse_eq_readProgram scans').1 parsed'
    have scanned' := scanned_of_scanText scans'
    rw [String.toList_append] at scans'
    obtain ⟨us, sizes, passes', tokens⟩ := passes_of_endsVideo scans' ends
    rw [tokens] at scanned' read'
    have joined : (first ++ "\n" ++ rest).toList = first.toList ++ '\n' :: rest.toList := by
      simp [String.toList_append]
    obtain ⟨t, whole, same⟩ :=
      scanText_of_passes (passes_newline (passes_of_scanText scans) passes')
    rw [← joined] at whole
    rw [parse_eq_readProgram whole, same]
    exact readProgram_continued (scanned_of_scanText scans) scanned' read read'
  · intro source p s parsed scans
    exact inWrittenOrder_of_readProgram (scanned_of_scanText scans)
      ((parse_eq_readProgram scans).1 parsed)

/-- A script that ends in a comment, with no newline after it. -/
def commented : String :=
  "video\x7bdimensions:(2,1)\x7dscene\"s\"\x7bduration:1s\x7d// \x7d"

def sized : String :=
  "video\x7bdimensions:(4,3)\x7d"

def titled : String :=
  "/**/scene\"t\"\x7bduration:2s\x7dscene\"u\"\x7bduration:-0s\x7d"

theorem commented_continues : ∃ p q s, parse commented = .ok p ∧
    parse (sized ++ titled) = .ok q ∧ scanText (sized ++ titled).toList = .ok s ∧
    EndsVideo sized.toList s ∧
    parse (commented ++ "\n" ++ titled) = .ok ⟨p.canvas, p.scenes ++ q.scenes⟩ ∧
    InWrittenOrder s.tokens q.scenes := by
  obtain ⟨-, p, -, parsed⟩ := scans_of_parse (show (parse commented).isOk by decide +kernel)
  obtain ⟨s, q, scans, parsed'⟩ :=
    scans_of_parse (show (parse (sized ++ titled)).isOk by decide +kernel)
  have block : (scanText (sized ++ titled).toList).toOption.map (fun s =>
      (s.tokens.take 10, s.lexemes[9]?.map (·.span.stop))) =
      some (.word "video" :: braced Dimensions.tokens [⟨4, 3⟩], some (byteCount sized.toList)) := by
    decide +kernel
  rw [scans] at block
  obtain ⟨video, stops⟩ := Prod.mk.inj (Option.some_inj.1 block)
  have ends : EndsVideo sized.toList s := ⟨9, _, video, stops⟩
  exact ⟨p, q, s, parsed, parsed', scans, ends,
    scenes_continue.1 commented sized titled p q s parsed parsed' scans ends,
    scenes_continue.2 (sized ++ titled) q s parsed' scans⟩

end Storyboard.Script
