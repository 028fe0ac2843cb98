import Storyboard.Proofs.Script.Elements

namespace Storyboard.Script.Reader

open Grammar

variable {ts rest : List Token}

theorem direction_eq_ok {d : Direction} :
    direction ts = .ok (d, rest) ↔ ts = .word (FadeTree.directionWord d) :: rest := by
  simp only [direction, take_eq_ok]
  constructor
  · rintro ⟨t, verdict, rfl⟩
    split at verdict
    · split at verdict
      · cases verdict; simp_all [FadeTree.directionWord]
      split at verdict
      · cases verdict; simp_all [FadeTree.directionWord]
      · cases verdict
    · cases verdict
  · rintro rfl
    cases d
    · exact ⟨_, rfl, rfl⟩
    · exact ⟨_, rfl, rfl⟩

theorem fade_eq_ok {f : Fade} :
    fade ts = .ok (f, rest) ↔
      ∃ t : FadeTree, (t.Admissible ∧ t.fade = f) ∧ ts = t.tokens ++ rest := by
  simp only [fade, bind_eq_ok, keyword_eq_ok, mark_eq_ok, text_eq_ok, direction_eq_ok,
    colonAfter_eq_ok, duration_eq_ok, skipComma_eq_ok, pure_eq_ok]
  constructor
  · rintro ⟨_, _, rfl, _, _, rfl, target, _, rfl, _, _, rfl, direction, _, rfl, _, _, rfl,
      _, _, rfl, _, _, rfl, secs, _, ⟨rfl, nonneg⟩, _, _, ⟨comma, rfl, -⟩, _, _, rfl, rfl, rfl⟩
    exact ⟨⟨target, direction, secs, comma⟩, ⟨nonneg, rfl⟩, by simp [FadeTree.tokens]⟩
  · rintro ⟨⟨target, direction, secs, comma⟩, ⟨nonneg, rfl⟩, rfl⟩
    refine ⟨(), _, rfl, (), _, rfl, target, _, rfl, (), _, rfl, direction, _, rfl, (), _, rfl,
      (), _, rfl, (), _, rfl, secs, _, ⟨rfl, nonneg⟩, (), .mark .closeParen :: rest,
      ⟨comma, ?_, ?_⟩, (), rest, rfl, rfl, rfl⟩
    · simp
    · rintro - h
      cases h

theorem command_reads :
    ReadsItem command FadeTree.tokens (fun t c => t.Admissible ∧ .fade t.fade = c) := by
  intro ts c rest _
  simp only [command, bind_eq_ok, fade_eq_ok, skipComma_eq_ok, pure_eq_ok]
  constructor
  · rintro ⟨_, _, ⟨t, ⟨admissible, rfl⟩, rfl⟩, _, _, ⟨comma, rfl, after⟩, rfl, rfl⟩
    exact ⟨⟨t, comma⟩, ⟨admissible, rfl⟩, by simp [Item.tokens], after⟩
  · rintro ⟨⟨t, comma⟩, ⟨admissible, rfl⟩, rfl, after⟩
    exact ⟨_, _, ⟨t, ⟨admissible, rfl⟩, by simp [Item.tokens]⟩, (), rest, ⟨comma, rfl, after⟩, rfl,
      rfl⟩

theorem fade_starts : StartsWithWord FadeTree.tokens :=
  fun _ => ⟨"fade", _, rfl⟩

theorem event_reads :
    ReadsItem event TriggerTree.tokens (fun t e => t.Admissible ∧ t.event = e) := by
  intro ts e rest scanned
  simp only [event, bind_eq_ok, keyword_eq_ok, duration_eq_ok, skipComma_eq_ok, pure_eq_ok]
  constructor
  · rintro ⟨_, _, rfl, secs, mid, ⟨rfl, nonneg⟩, commands, _, read, _, _, ⟨comma, rfl, after⟩, rfl,
      rfl⟩
    have inner := scanned_tail (scanned_tail scanned)
    obtain ⟨trees, values, rfl, -⟩ :=
      (block_reads (loops_items fade_starts) command_reads inner).1 read
    obtain ⟨admissible, rfl⟩ := forall₂_map_iff.1 values
    refine ⟨⟨⟨secs, trees⟩, comma⟩, ⟨⟨nonneg, admissible⟩, rfl⟩, ?_, after⟩
    simp [Item.tokens, TriggerTree.tokens]
  · rintro ⟨⟨⟨secs, trees⟩, comma⟩, ⟨⟨nonneg, admissible⟩, rfl⟩, rfl, after⟩
    refine ⟨(), _, rfl, secs, _, ⟨rfl, nonneg⟩, trees.map fun c => .fade c.node.fade,
      comma? comma ++ rest, ?_, (), rest, ⟨comma, rfl, after⟩, rfl, rfl⟩
    have inner := scanned_tail (scanned_tail scanned)
    refine (block_reads (loops_items fade_starts) command_reads ?_).2
      ⟨trees, forall₂_map_iff.2 ⟨admissible, rfl⟩, ?_, trivial⟩
    · simpa [Item.tokens] using inner
    · simp

theorem timeline_reads :
    Reads timeline (braced (Item.tokens TriggerTree.tokens))
      (List.Forall₂ fun i e => i.node.Admissible ∧ i.node.event = e) anything :=
  block_reads (loops_items fun _ => ⟨"at", _, rfl⟩) event_reads

theorem visual_reads :
    ReadsItem visual ElementTree.tokens (fun t e => t.Admissible ∧ t.element? = some e) := by
  intro ts e rest scanned
  simp only [visual, bind_eq_ok, skipComma_eq_ok, pure_eq_ok]
  constructor
  · rintro ⟨e, mid, read, _, _, ⟨comma, rfl, after⟩, rfl, rfl⟩
    obtain ⟨t, denotes, rfl, -⟩ := (element_reads scanned).1 read
    exact ⟨⟨t, comma⟩, denotes, by simp [Item.tokens], after⟩
  · rintro ⟨⟨t, comma⟩, denotes, rfl, after⟩
    refine ⟨e, comma? comma ++ rest, ?_, (), rest, ⟨comma, rfl, after⟩, rfl, rfl⟩
    exact (element_reads scanned).2 ⟨t, denotes, by simp [Item.tokens], trivial⟩

/-- The blocks of a scene are read exactly from what their trees spell. -/
theorem visuals_reads :
    Reads visuals (braced (Item.tokens ElementTree.tokens))
      (List.Forall₂ fun i e => i.node.Admissible ∧ i.node.element? = some e) anything :=
  block_reads (loops_items fun t => ⟨t.shape.keyword, _, rfl⟩) visual_reads

end Storyboard.Script.Reader
