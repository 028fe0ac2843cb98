import Storyboard.Proofs.Script.Events

namespace Storyboard.Script.Reader

open Grammar

variable {ts rest : List Token}

theorem size_eq_ok {axis : Axis} {n : UInt32} :
    size axis ts = .ok (n, rest) ↔
      ∃ value, ts = .number value true :: rest ∧ pixelSize axis value = .accept n := by
  simp only [size, take_eq_ok]
  constructor
  · rintro ⟨t, verdict, rfl⟩
    split at verdict
    · exact ⟨_, rfl, verdict⟩
    · cases verdict
  · rintro ⟨value, rfl, accepted⟩
    exact ⟨.number value true, accepted, rfl⟩

theorem pixels_iff {axis : Axis} {x : Float} {n : UInt32}
    (scanned : (Token.number x true).Scanned) :
    pixelSize axis x = .accept n ↔ Dimensions.InPixels x ∧ Dimensions.pixels? x = some n := by
  rw [pixelSize_accept_iff scanned]
  unfold Dimensions.InPixels Dimensions.pixels?
  constructor
  · rintro ⟨value, pos⟩
    refine ⟨⟨n.toNat, value, pos, n.toNat_lt⟩, ?_⟩
    rw [value]
    simp
  · rintro ⟨⟨k, value, pos, bound⟩, pixels⟩
    rw [value] at pixels
    cases pixels
    have same : (UInt32.ofNat k).toNat = k := UInt32.toNat_ofNat_of_lt' bound
    simp [value, same, pos]

theorem dimensions_eq_ok {c : Canvas} :
    dimensions ts = .ok (c, rest) ↔ ∃ w h,
      ts = .mark .openParen :: .number w true :: .mark .comma :: .number h true ::
        .mark .closeParen :: rest ∧
      pixelSize .width w = .accept c.width ∧ pixelSize .height h = .accept c.height := by
  simp only [dimensions, bind_eq_ok, mark_eq_ok, size_eq_ok, pure_eq_ok]
  constructor
  · rintro ⟨_, _, rfl, width, _, ⟨w, rfl, hw⟩, _, _, rfl, height, _, ⟨h, rfl, hh⟩, _, _, rfl, rfl,
      rfl⟩
    exact ⟨w, h, rfl, hw, hh⟩
  · rintro ⟨w, h, rfl, hw, hh⟩
    exact ⟨(), _, rfl, _, _, ⟨w, rfl, hw⟩, (), _, rfl, _, _, ⟨h, rfl, hh⟩, (), _, rfl, rfl, rfl⟩

theorem videoProperty_reads :
    Reads videoProperty Dimensions.tokens (fun d c => d.Admissible ∧ d.canvas? = some c)
      anything := by
  intro ts c rest scanned
  simp only [videoProperty, bind_eq_ok, take_eq_ok, colonAfter_eq_ok, dimensions_eq_ok]
  constructor
  · rintro ⟨_, _, ⟨t, verdict, rfl⟩, _, _, rfl, w, h, rfl, hw, hh⟩
    split at verdict
    · split at verdict <;> cases verdict
      rename_i named
      subst named
      have ⟨okWidth, width⟩ := (pixels_iff (scanned (.number w true) (by simp))).1 hw
      have ⟨okHeight, height⟩ := (pixels_iff (scanned (.number h true) (by simp))).1 hh
      refine ⟨⟨w, h⟩, ⟨⟨okWidth, okHeight⟩, ?_⟩, rfl, trivial⟩
      simp [Dimensions.canvas?, width, height]
    · cases verdict
  · rintro ⟨⟨w, h⟩, ⟨⟨okWidth, okHeight⟩, denotes⟩, rfl, -⟩
    simp only [Dimensions.canvas?, Option.bind_eq_bind, Option.bind_eq_some_iff, Option.pure_def,
      Option.some.injEq] at denotes
    obtain ⟨width, hw, height, hh, rfl⟩ := denotes
    refine ⟨(), _, ⟨.word "dimensions", if_pos rfl, rfl⟩, (), _, rfl, w, h, rfl, ?_, ?_⟩
    · exact (pixels_iff (scanned (.number w true) (by simp [Dimensions.tokens]))).2 ⟨okWidth, hw⟩
    · exact (pixels_iff (scanned (.number h true) (by simp [Dimensions.tokens]))).2 ⟨okHeight, hh⟩

theorem lastCanvas_eq_ok {sizes : List Canvas} {c : Canvas} :
    lastCanvas sizes = .ok c ↔ sizes.getLast? = some c := by
  unfold lastCanvas
  cases sizes.getLast? <;> simp

theorem exists_canvas {d : Dimensions} (h : d.Admissible) :
    ∃ c, d.Admissible ∧ d.canvas? = some c := by
  obtain ⟨n, width, -⟩ := h.width
  obtain ⟨m, height, -⟩ := h.height
  exact ⟨_, h, by simp [Dimensions.canvas?, Dimensions.pixels?, width, height]; rfl⟩

theorem last_canvas {ds : List Dimensions} {sizes : List Canvas}
    (values : List.Forall₂ (fun d c => d.Admissible ∧ d.canvas? = some c) ds sizes) :
    sizes.getLast? = ds.getLast?.bind Dimensions.canvas? := by
  have last := rel_getLast? values
  generalize sizes.getLast? = c at last
  generalize ds.getLast? = d at last
  cases last with
  | none => rfl
  | some h => exact h.2.symm

/-- Of several sizes the last one counts, and all of them must be right. -/
theorem video_eq_ok {c : Canvas} (scanned : ∀ t ∈ ts, t.Scanned) :
    video ts = .ok (c, rest) ↔ ∃ ds : List Dimensions, (∀ d ∈ ds, d.Admissible) ∧
      ds.getLast?.bind Dimensions.canvas? = some c ∧
      ts = .word "video" :: (braced Dimensions.tokens ds ++ rest) := by
  have loops : Loops atCloseBrace Dimensions.tokens anything :=
    loops_of_starts (fun _ => ⟨"dimensions", _, rfl⟩) fun _ => rfl
  simp only [video, bind_eq_ok, keyword_eq_ok, mark_eq_ok, close_eq_ok, lastCanvas_eq_ok]
  constructor
  · rintro ⟨_, _, rfl, _, _, rfl, sizes, _, read, last, rfl⟩
    have inner := scanned_tail (scanned_tail scanned)
    obtain ⟨ds, values, rfl, -⟩ := (repeatUntil_reads loops videoProperty_reads inner).1 read
    exact ⟨ds, forall_left (fun _ _ h => h.1) values, last_canvas values ▸ last, by simp [braced]⟩
  · rintro ⟨ds, admissible, last, rfl⟩
    have inner := scanned_tail (scanned_tail scanned)
    obtain ⟨sizes, values⟩ := exists_forall₂ fun d mem => exists_canvas (admissible d mem)
    refine ⟨(), _, rfl, (), _, rfl, sizes, .mark .closeBrace :: rest, ?_, last_canvas values ▸ last,
      rfl⟩
    exact (repeatUntil_reads loops videoProperty_reads inner).2 ⟨ds, values, by simp, rfl⟩

theorem sceneWord_eq_ok {w : SceneWord} :
    sceneWord ts = .ok (w, rest) ↔ ts = .word w.word :: rest := by
  simp only [sceneWord, take_eq_ok]
  constructor
  · rintro ⟨t, verdict, rfl⟩
    split at verdict
    · split at verdict <;> cases verdict
      rename_i found
      have word := List.find?_some found
      rw [beq_iff_eq.1 word]
    · cases verdict
  · rintro rfl
    cases w <;> exact ⟨_, rfl, rfl⟩

/-- What an admissible property says. -/
inductive PropertySays : PropertyTree → SceneProperty → Prop where
  | duration {secs : Float} (nonneg : ¬ secs < 0.0) : PropertySays (.duration secs) (.duration secs)
  | narration {body : String} : PropertySays (.narration body) (.narration body)
  | visuals {items : List (Item ElementTree)} {elements : List Element}
    (admissible : ∀ i ∈ items, i.node.Admissible)
    (denotes : items.mapM (·.node.element?) = some elements) :
    PropertySays (.visuals items) (.visuals elements)
  | timeline {items : List (Item TriggerTree)} (admissible : ∀ i ∈ items, i.node.Admissible) :
    PropertySays (.timeline items) (.timeline (items.map (·.node.event)))

theorem sceneProperty_reads :
    Reads sceneProperty PropertyTree.tokens PropertySays anything := by
  intro ts p rest scanned
  simp only [sceneProperty, bind_eq_ok, sceneWord_eq_ok, colonAfter_eq_ok]
  constructor
  · rintro ⟨w, _, rfl, _, _, rfl, value⟩
    have inner := scanned_tail (scanned_tail scanned)
    cases w with
    | duration =>
      simp only [sceneValue, bind_eq_ok, duration_eq_ok, pure_eq_ok] at value
      obtain ⟨secs, _, ⟨rfl, nonneg⟩, rfl, rfl⟩ := value
      exact ⟨_, .duration nonneg, rfl, trivial⟩
    | narration =>
      simp only [sceneValue, bind_eq_ok, text_eq_ok, pure_eq_ok] at value
      obtain ⟨body, _, rfl, rfl, rfl⟩ := value
      exact ⟨_, .narration, rfl, trivial⟩
    | visuals =>
      simp only [sceneValue, bind_eq_ok, pure_eq_ok] at value
      obtain ⟨elements, _, read, rfl, rfl⟩ := value
      obtain ⟨items, values, rfl, -⟩ := (visuals_reads inner).1 read
      obtain ⟨admissible, denotes⟩ := forall₂_mapM_iff.1 values
      exact ⟨_, .visuals admissible denotes, rfl, trivial⟩
    | timeline =>
      simp only [sceneValue, bind_eq_ok, pure_eq_ok] at value
      obtain ⟨events, _, read, rfl, rfl⟩ := value
      obtain ⟨items, values, rfl, -⟩ := (timeline_reads inner).1 read
      obtain ⟨admissible, rfl⟩ := forall₂_map_iff.1 values
      exact ⟨_, .timeline admissible, rfl, trivial⟩
  · rintro ⟨t, said, rfl, -⟩
    cases said with
    | duration nonneg =>
      refine ⟨.duration, _, rfl, (), _, rfl, ?_⟩
      simp only [sceneValue, bind_eq_ok, duration_eq_ok, pure_eq_ok]
      exact ⟨_, _, ⟨rfl, nonneg⟩, rfl, rfl⟩
    | narration =>
      refine ⟨.narration, _, rfl, (), _, rfl, ?_⟩
      simp only [sceneValue, bind_eq_ok, text_eq_ok, pure_eq_ok]
      exact ⟨_, _, rfl, rfl, rfl⟩
    | visuals admissible denotes =>
      refine ⟨.visuals, _, rfl, (), _, rfl, ?_⟩
      simp only [sceneValue, bind_eq_ok, pure_eq_ok]
      have read := (visuals_reads (scanned_tail (scanned_tail scanned))).2
        ⟨_, forall₂_mapM_iff.2 ⟨admissible, denotes⟩, rfl, trivial⟩
      exact ⟨_, _, read, rfl, rfl⟩
    | timeline admissible =>
      refine ⟨.timeline, _, rfl, (), _, rfl, ?_⟩
      simp only [sceneValue, bind_eq_ok, pure_eq_ok]
      have read := (timeline_reads (scanned_tail (scanned_tail scanned))).2
        ⟨_, forall₂_map_iff.2 ⟨admissible, rfl⟩, rfl, trivial⟩
      exact ⟨_, _, read, rfl, rfl⟩

def durationOf? : SceneProperty → Option Float
  | .duration secs => some secs
  | _ => none

def narrationOf? : SceneProperty → Option String
  | .narration body => some body
  | _ => none

def visualsOf? : SceneProperty → Option (List Element)
  | .visuals elements => some elements
  | _ => none

def timelineOf? : SceneProperty → Option (List Event)
  | .timeline events => some events
  | _ => none

theorem getD_rel {β γ : Type} {S : β → γ → Prop} {b : Option β} {c : Option γ} {x : β} {y : γ}
    (h : Option.Rel S b c) (default : S x y) : S (b.getD x) (c.getD y) := by
  cases h with
  | none => exact default
  | some related => exact related

section Drafts

variable {t : SceneTree} {props : List SceneProperty}

theorem draft_duration (said : List.Forall₂ PropertySays t.properties props) :
    (SceneDraft.ofProperties props).duration = t.last? PropertyTree.duration? :=
  last_of_fold SceneDraft.duration durationOf? rfl (fun _ p => by cases p <;> rfl)
    (fun _ _ h => by cases h <;> rfl) said

theorem draft_narration (said : List.Forall₂ PropertySays t.properties props) :
    (SceneDraft.ofProperties props).narration = t.last? PropertyTree.narration? :=
  last_of_fold SceneDraft.narration narrationOf? rfl (fun _ p => by cases p <;> rfl)
    (fun _ _ h => by cases h <;> rfl) said

theorem draft_visuals (said : List.Forall₂ PropertySays t.properties props) :
    ((t.last? PropertyTree.visuals?).getD []).mapM (·.node.element?) =
      some ((SceneDraft.ofProperties props).visuals.getD []) := by
  have last : Option.Rel (fun items elements => items.mapM (·.node.element?) = some elements)
      (t.last? PropertyTree.visuals?) (SceneDraft.ofProperties props).visuals := by
    refine rel_last_of_fold SceneDraft.visuals visualsOf? rfl (fun _ p => by cases p <;> rfl)
      (fun _ _ h => ?_) said
    cases h with
    | visuals _ denotes => exact .some denotes
    | duration | narration | timeline => exact .none
  exact getD_rel last rfl

theorem draft_timeline (said : List.Forall₂ PropertySays t.properties props) :
    ((t.last? PropertyTree.timeline?).getD []).map (·.node.event) =
      (SceneDraft.ofProperties props).timeline.getD [] := by
  have last : Option.Rel (fun items events => items.map (·.node.event) = events)
      (t.last? PropertyTree.timeline?) (SceneDraft.ofProperties props).timeline := by
    refine rel_last_of_fold SceneDraft.timeline timelineOf? rfl (fun _ p => by cases p <;> rfl)
      (fun _ _ h => ?_) said
    cases h with
    | timeline => exact .some rfl
    | duration | narration | visuals => exact .none
  exact getD_rel last rfl

/-- The draft of the properties is finished as the scene that they denote. -/
theorem scene_finish_iff (said : List.Forall₂ PropertySays t.properties props) {s : Scene} :
    (SceneDraft.ofProperties props).finish t.title = .ok s ↔ t.scene? = some s := by
  simp only [SceneTree.scene?, draft_visuals said, draft_timeline said, ← draft_duration said,
    ← draft_narration said, SceneDraft.finish]
  cases (SceneDraft.ofProperties props).duration <;> simp

end Drafts

theorem says_of_property {p : PropertyTree} (h : p.Admissible) : ∃ q, PropertySays p q := by
  cases p with
  | duration secs => exact ⟨_, .duration h⟩
  | narration body => exact ⟨_, .narration⟩
  | visuals items =>
    obtain ⟨elements, values⟩ := exists_forall₂
      (R := fun (i : Item ElementTree) e => i.node.Admissible ∧ i.node.element? = some e)
      fun i mem => (exists_element (h i mem)).imp fun _ denotes => ⟨h i mem, denotes⟩
    obtain ⟨admissible, denotes⟩ := forall₂_mapM_iff.1 values
    exact ⟨_, .visuals admissible denotes⟩
  | timeline items => exact ⟨_, .timeline h⟩

theorem PropertySays.admissible {p : PropertyTree} {q : SceneProperty} (h : PropertySays p q) :
    p.Admissible := by
  cases h with
  | duration nonneg => exact nonneg
  | narration => trivial
  | visuals admissible => exact admissible
  | timeline admissible => exact admissible

theorem duration_of_scene? {t : SceneTree} {s : Scene} (h : t.scene? = some s) :
    ∃ secs, .duration secs ∈ t.properties := by
  obtain ⟨secs, last, -⟩ := Option.bind_eq_some_iff.1 h
  obtain ⟨p, listed, value⟩ := List.mem_filterMap.1 (List.mem_of_getLast? last)
  cases p with
  | duration => exact ⟨_, listed⟩
  | narration | visuals | timeline => cases value

theorem exists_scene {t : SceneTree} (h : t.Admissible) : ∃ s, t.scene? = some s := by
  obtain ⟨props, said⟩ := exists_forall₂ fun p mem => says_of_property (h.properties p mem)
  obtain ⟨secs, listed⟩ := h.duration
  have mem : secs ∈ t.properties.filterMap PropertyTree.duration? :=
    List.mem_filterMap.2 ⟨_, listed, rfl⟩
  obtain ⟨last, eq⟩ := Option.isSome_iff_exists.1 (List.getLast?_isSome.2 (List.ne_nil_of_mem mem))
  have finished : ∃ s, (SceneDraft.ofProperties props).finish t.title = .ok s := by
    rw [SceneDraft.finish, draft_duration said, SceneTree.last?, eq]
    exact ⟨_, rfl⟩
  exact finished.imp fun _ => (scene_finish_iff said).1

/-- A scene is read exactly from what an admissible tree spells. -/
theorem scene_reads :
    Reads scene SceneTree.tokens (fun t s => t.Admissible ∧ t.scene? = some s) anything := by
  intro ts s rest scanned
  have loops : Loops atCloseBrace PropertyTree.tokens anything :=
    loops_of_starts (fun p => by cases p <;> exact ⟨_, _, rfl⟩) fun _ => rfl
  simp only [scene, bind_eq_ok, keyword_eq_ok, text_eq_ok, mark_eq_ok, close_eq_ok]
  constructor
  · rintro ⟨_, _, rfl, title, _, rfl, _, _, rfl, props, _, read, finished, rfl⟩
    have inner := scanned_tail (scanned_tail (scanned_tail scanned))
    obtain ⟨properties, said, rfl, -⟩ := (repeatUntil_reads loops sceneProperty_reads inner).1 read
    have denotes := (scene_finish_iff (t := ⟨title, properties⟩) said).1 finished
    have admissible : SceneTree.Admissible ⟨title, properties⟩ :=
      ⟨forall_left (fun _ _ h => PropertySays.admissible h) said, duration_of_scene? denotes⟩
    exact ⟨⟨title, properties⟩, ⟨admissible, denotes⟩, by simp [SceneTree.tokens, braced], trivial⟩
  · rintro ⟨⟨title, properties⟩, ⟨admissible, denotes⟩, rfl, -⟩
    have inner := scanned_tail (scanned_tail (scanned_tail scanned))
    obtain ⟨props, said⟩ :=
      exists_forall₂ fun p mem => says_of_property (admissible.properties p mem)
    refine ⟨(), _, rfl, title, _, rfl, (), _, rfl, props, .mark .closeBrace :: rest, ?_,
      (scene_finish_iff said).2 denotes, rfl⟩
    exact (repeatUntil_reads loops sceneProperty_reads inner).2 ⟨properties, said, by simp, rfl⟩

theorem program?_eq_some {t : ScriptTree} {p : Program} :
    t.program? = some p ↔ t.dimensions.getLast?.bind Dimensions.canvas? = some p.canvas ∧
      t.scenes.mapM SceneTree.scene? = some p.scenes := by
  obtain ⟨canvas, scenes⟩ := p
  simp only [ScriptTree.program?, Option.bind_eq_bind, Option.bind_eq_some_iff, Option.pure_def,
    Option.some.injEq, Program.mk.injEq]
  constructor
  · rintro ⟨d, last, _, size, _, values, rfl, rfl⟩
    exact ⟨⟨d, last, size⟩, values⟩
  · rintro ⟨⟨d, last, size⟩, values⟩
    exact ⟨d, last, _, size, _, values, rfl, rfl⟩

/-- A script is read exactly from what an admissible tree spells, to the last token. -/
theorem program_eq_ok {p : Program} (scanned : ∀ t ∈ ts, t.Scanned) :
    program ts = .ok (p, rest) ↔
      ∃ t : ScriptTree, (t.Admissible ∧ t.program? = some p) ∧ t.tokens = ts ∧ rest = [] := by
  have loops : Loops Option.isNone SceneTree.tokens anything :=
    loops_of_starts (fun _ => ⟨"scene", _, rfl⟩) fun _ => rfl
  simp only [program, bind_eq_ok, video_eq_ok scanned]
  constructor
  · rintro ⟨canvas, _, ⟨ds, sizes, last, rfl⟩, scenes, left, read, ended⟩
    have inner := scanned_right (scanned_tail scanned)
    obtain ⟨trees, values, rfl, stops⟩ := (repeatUntil_reads loops scene_reads inner).1 read
    obtain rfl : left = [] := List.head?_eq_none_iff.1 (Option.isNone_iff_eq_none.1 stops)
    obtain ⟨admissible, denotes⟩ := forall₂_mapM_iff.1 values
    cases trees with
    | nil =>
      cases values
      cases ended
    | cons first others =>
      cases values
      obtain ⟨rfl, rfl⟩ := pure_eq_ok.1 ended
      refine ⟨⟨ds, first, others⟩,
        ⟨⟨?_, sizes, admissible⟩, program?_eq_some.2 ⟨last, denotes⟩⟩, ?_, rfl⟩
      · rintro rfl
        cases last
      · simp [ScriptTree.tokens, ScriptTree.scenes]
  · rintro ⟨⟨ds, first, others⟩, ⟨admissible, denotes⟩, rfl, rfl⟩
    obtain ⟨last, values⟩ := program?_eq_some.1 denotes
    have inner := scanned_right (scanned_tail scanned)
    have values := forall₂_mapM_iff.2 ⟨admissible.scenes, values⟩
    refine ⟨p.canvas, _, ⟨ds, admissible.sizes, last, rfl⟩, p.scenes, [], ?_, ?_⟩
    · exact (repeatUntil_reads loops scene_reads inner).2 ⟨_, values, by simp, rfl⟩
    · obtain ⟨canvas, scenes⟩ := p
      cases values
      rfl

/-- An admissible tree always denotes a program. -/
theorem exists_program {t : ScriptTree} (h : t.Admissible) : ∃ p, t.program? = some p := by
  obtain ⟨d, last⟩ := Option.isSome_iff_exists.1 (List.getLast?_isSome.2 h.dimensions)
  obtain ⟨canvas, -, size⟩ := exists_canvas (h.sizes d (List.mem_of_getLast? last))
  obtain ⟨scenes, values⟩ := exists_forall₂
    (R := fun (t : SceneTree) s => t.Admissible ∧ t.scene? = some s)
    fun s mem => (exists_scene (h.scenes s mem)).imp fun _ denotes => ⟨h.scenes s mem, denotes⟩
  exact ⟨⟨canvas, scenes⟩, program?_eq_some.2 ⟨by rw [last]; exact size,
    (forall₂_mapM_iff.1 values).2⟩⟩

end Storyboard.Script.Reader
