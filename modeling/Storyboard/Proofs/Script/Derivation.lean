import Storyboard.Proofs.Script.Scenes

namespace Storyboard.Script

open Grammar (ScriptTree)

variable {source : String} {scanned : Scanned} {p : Program}

theorem parse_eq_readProgram (scans : scanText source.toList = .ok scanned) :
    parse source = .ok p ↔ readProgram scanned.tokens = .ok p := by
  rw [parse, parseText, scans]
  change (readProgram scanned.tokens).mapError _ = _ ↔ _
  cases readProgram scanned.tokens <;> simp [Except.mapError]

/-- A row of scanned tokens is read as the program of a derivation of the whole row. -/
theorem readProgram_eq_ok {tokens : List Token} (scanned : ∀ t ∈ tokens, t.Scanned) :
    readProgram tokens = .ok p ↔
      ∃ t : ScriptTree, (t.Admissible ∧ t.program? = some p) ∧ t.tokens = tokens := by
  have read : readProgram tokens = .ok p ↔ ∃ rest, Reader.program tokens = .ok (p, rest) := by
    unfold readProgram
    cases Reader.program tokens with
    | error m => simp [Except.map]
    | ok pair =>
      obtain ⟨q, rest⟩ := pair
      simp [Except.map]
  rw [read]
  simp only [Reader.program_eq_ok scanned]
  constructor
  · rintro ⟨_, t, denotes, spelled, -⟩
    exact ⟨t, denotes, spelled⟩
  · rintro ⟨t, denotes, spelled⟩
    exact ⟨[], t, denotes, spelled, rfl⟩

theorem scans_of_parse (h : (parse source).isOk) :
    ∃ s p, scanText source.toList = .ok s ∧ parse source = .ok p := by
  cases parsed : parse source with
  | error e => rw [parsed] at h; cases h
  | ok p =>
    rw [parse, parseText] at parsed
    cases scans : scanText source.toList with
    | error e => rw [scans] at parsed; cases parsed
    | ok s => exact ⟨s, p, rfl, rfl⟩

theorem exists_scanText (parsed : parse source = .ok p) :
    ∃ s, scanText source.toList = .ok s ∧ readProgram s.tokens = .ok p := by
  have accepted : (parse source).isOk := by rw [parsed]; rfl
  obtain ⟨s, -, scans, -⟩ := scans_of_parse accepted
  exact ⟨s, scans, (parse_eq_readProgram scans).1 parsed⟩

/-- A script that scans is accepted just if its tokens have an admissible derivation, and then the
program is the one that every such derivation denotes. -/
theorem parse_iff_derivation (scans : scanText source.toList = .ok scanned) :
    ((∃ p, parse source = .ok p) ↔
      ∃ t : ScriptTree, t.tokens = scanned.tokens ∧ t.Admissible) ∧
    ∀ t : ScriptTree, t.tokens = scanned.tokens → t.Admissible →
      ∃ p, parse source = .ok p ∧ t.program? = some p := by
  have reads {p : Program} : parse source = .ok p ↔ _ :=
    (parse_eq_readProgram scans).trans (readProgram_eq_ok (scanned_of_scanText scans))
  have accepts (t : ScriptTree) (spelled : t.tokens = scanned.tokens) (admissible : t.Admissible) :
      ∃ p, parse source = .ok p ∧ t.program? = some p := by
    obtain ⟨p, denotes⟩ := Reader.exists_program admissible
    exact ⟨p, reads.2 ⟨t, ⟨admissible, denotes⟩, spelled⟩, denotes⟩
  refine ⟨⟨?_, ?_⟩, accepts⟩
  · rintro ⟨p, parsed⟩
    obtain ⟨t, ⟨admissible, -⟩, spelled⟩ := reads.1 parsed
    exact ⟨t, spelled, admissible⟩
  · rintro ⟨t, spelled, admissible⟩
    obtain ⟨p, parsed, -⟩ := accepts t spelled admissible
    exact ⟨p, parsed⟩

/-- A script that repeats its dimensions and a radius. -/
def repeating : String :=
  "video\x7bdimensions:(2,1)dimensions:(4,3)\x7dscene\"s\"\x7bduration:1s visuals:" ++
  "\x7bcircle(radius:1,id:\"c\",at:(0,-1.5),radius:2,)\x7d\x7d"

theorem repeating_derivable :
    ∃ s, scanText repeating.toList = .ok s ∧
      ∃ t : ScriptTree, t.tokens = s.tokens ∧ t.Admissible := by
  obtain ⟨s, p, scans, parsed⟩ := scans_of_parse (show (parse repeating).isOk by decide +kernel)
  exact ⟨s, scans, (parse_iff_derivation scans).1.1 ⟨p, parsed⟩⟩

end Storyboard.Script
