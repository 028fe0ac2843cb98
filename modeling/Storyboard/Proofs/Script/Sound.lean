import Storyboard.Proofs.Double.Order
import Storyboard.Proofs.Script.Derivation
import Storyboard.Proofs.Script.Lexing

namespace Storyboard

def Unquoted (s : String) : Prop :=
  '"' ∉ s.toList

/-- A length in seconds; it may be a zero of either sign. -/
structure IsLength (secs : Float) : Prop where
  finite : secs.isFinite
  nonneg : 0.0 ≤ secs

structure Point.Sound (p : Point) : Prop where
  x : p.x.isFinite
  y : p.y.isFinite

inductive Figure.Sound : Figure → Prop where
  | text {content : String} (unquoted : Unquoted content) : Sound (.text content)
  | circle {radius : Float} (finite : radius.isFinite) (positive : 0.0 < radius) :
    Sound (.circle radius)

structure Element.Sound (e : Element) : Prop where
  id : Unquoted e.id
  anchor : e.anchor.Sound
  figure : e.figure.Sound

structure Fade.Sound (f : Fade) : Prop where
  target : Unquoted f.target
  duration : IsLength f.duration

structure Event.Sound (e : Event) : Prop where
  time : IsLength e.time
  commands : ∀ f, .fade f ∈ e.commands → f.Sound

structure Scene.Sound (s : Scene) : Prop where
  title : Unquoted s.title
  duration : IsLength s.duration
  narration : ∀ body, s.narration = some body → Unquoted body
  elements : ∀ e ∈ s.elements, e.Sound
  timeline : ∀ e ∈ s.timeline, e.Sound

structure Program.Sound (p : Program) : Prop where
  nonempty : p.scenes ≠ []
  width : 1 ≤ p.canvas.width
  height : 1 ≤ p.canvas.height
  scenes : ∀ s ∈ p.scenes, s.Sound

namespace Script

open Grammar

theorem Token.Spelled.finite {value : Float} {integer : Bool}
    (h : (Token.number value integer).Spelled) : value.isFinite := by
  obtain ⟨piece, spells⟩ := h
  cases spells with
  | number digits finite => exact finite

theorem Token.Spelled.isLength {secs : Float} (h : (Token.duration secs).Spelled)
    (nonneg : ¬ secs < 0.0) : IsLength secs := by
  obtain ⟨piece, spells⟩ := h
  cases spells with
  | duration digits finite => exact ⟨finite, Double.zero_le_of_not_lt finite nonneg⟩

theorem Token.Spelled.unquoted {body : String} (h : (Token.text body).Spelled) :
    Unquoted body := by
  obtain ⟨piece, spells⟩ := h
  cases spells with
  | text unquoted =>
    rw [Unquoted, String.toList_ofList]
    exact unquoted

theorem exists_of_mapM {α β : Type} {f : α → Option β} {as : List α} {bs : List β}
    (values : as.mapM f = some bs) {b : β} (listed : b ∈ bs) : ∃ a ∈ as, f a = some b := by
  have related := (Reader.forall₂_mapM_iff (P := fun _ => True)).2 ⟨fun _ _ => trivial, values⟩
  induction related with
  | nil => cases listed
  | cons head tail ih =>
    rcases List.mem_cons.1 listed with rfl | listed
    · exact ⟨_, List.mem_cons_self, head.2⟩
    · obtain ⟨a, inside, value⟩ := ih (Reader.forall₂_mapM_iff.1 tail).2 listed
      exact ⟨a, List.mem_cons_of_mem _ inside, value⟩

section Elements

variable {t : ElementTree} {e : Element}

theorem clause_spelled (spelled : ∀ u ∈ t.tokens, u.Spelled) :
    ∀ c ∈ t.arguments.clauses, ∀ u ∈ c.value.tokens, u.Spelled := by
  obtain ⟨shape, first, others, comma⟩ := t
  simp only [ElementTree.tokens, Arguments.tokens, Clause.tokens, List.forall_mem_cons,
    List.forall_mem_append, List.forall_mem_flatMap] at spelled
  obtain ⟨-, -, ⟨⟨⟨-, -, head⟩, tail⟩, -⟩, -⟩ := spelled
  intro c listed
  rcases List.mem_cons.1 listed with rfl | listed
  · exact head
  · exact (tail c listed).2.2.2

theorem exists_clause {α : Type} {given : Arguments} {name : String} {kind : Value → Option α}
    {a : α} (last : given.last? name kind = some a) :
    ∃ c ∈ given.clauses, kind c.value = some a := by
  obtain ⟨c, listed, value⟩ := List.mem_filterMap.1 (List.mem_of_getLast? last)
  unfold Clause.valueOf at value
  split at value
  · exact ⟨c, listed, value⟩
  · cases value

theorem unquoted_of_text? {v : Value} {body : String} (text : v.text? = some body)
    (spelled : ∀ u ∈ v.tokens, u.Spelled) : Unquoted body := by
  cases v with
  | text b =>
    cases text
    exact (spelled _ List.mem_cons_self).unquoted
  | number | point => cases text

theorem sound_of_point? {v : Value} {p : Point} (point : v.point? = some p)
    (spelled : ∀ u ∈ v.tokens, u.Spelled) : p.Sound := by
  cases v with
  | point x y =>
    cases point
    exact ⟨(spelled x.token (by simp [Value.tokens])).finite,
      (spelled y.token (by simp [Value.tokens])).finite⟩
  | text | number => cases point

/-- The only clause with a number is a radius. -/
theorem positive_of_number? {s : Shape} {c : Clause} {r : Float} (allowed : c.Allowed s)
    (number : c.value.number? = some r) (spelled : ∀ u ∈ c.value.tokens, u.Spelled) :
    r.isFinite ∧ 0.0 < r := by
  cases allowed with
  | radius positive =>
    cases number
    exact ⟨(spelled _ List.mem_cons_self).finite, positive⟩
  | id | anchor | content => cases number

theorem figure_sound {f : Figure} (admissible : t.Admissible) (figure : t.figure? = some f)
    (spelled : ∀ u ∈ t.tokens, u.Spelled) : f.Sound := by
  have clauses := clause_spelled spelled
  obtain ⟨shape, given⟩ := t
  cases shape with
  | text =>
    obtain ⟨body, last, rfl⟩ := Option.map_eq_some_iff.1 figure
    obtain ⟨c, listed, text⟩ := exists_clause last
    exact .text (unquoted_of_text? text (clauses c listed))
  | circle =>
    obtain ⟨r, last, rfl⟩ := Option.map_eq_some_iff.1 figure
    obtain ⟨c, listed, number⟩ := exists_clause last
    obtain ⟨finite, positive⟩ :=
      positive_of_number? (admissible.allowed c listed) number (clauses c listed)
    exact .circle finite positive

/-- Numbers are finite and texts have no quotes because the scanner lets no others through; signs
are checked where they are read. -/
theorem element_sound (admissible : t.Admissible) (denotes : t.element? = some e)
    (spelled : ∀ u ∈ t.tokens, u.Spelled) : e.Sound := by
  obtain ⟨id, anchor, figure⟩ := Reader.element?_eq_some.1 denotes
  have clauses := clause_spelled spelled
  obtain ⟨c, listed, text⟩ := exists_clause id
  obtain ⟨d, listed', point⟩ := exists_clause anchor
  exact ⟨unquoted_of_text? text (clauses c listed), sound_of_point? point (clauses d listed'),
    figure_sound admissible figure spelled⟩

end Elements

theorem fade_sound {t : FadeTree} (admissible : t.Admissible)
    (spelled : ∀ u ∈ t.tokens, u.Spelled) : t.fade.Sound := by
  constructor
  · exact (spelled (.text t.target) (by simp [FadeTree.tokens])).unquoted
  · exact (spelled (.duration t.duration) (by simp [FadeTree.tokens])).isLength admissible

/-- What a block spells holds what its items spell. -/
theorem spelled_of_braced {α : Type} {tokens : α → List Token} {items : List (Item α)}
    (spelled : ∀ u ∈ braced (Item.tokens tokens) items, u.Spelled) :
    ∀ i ∈ items, ∀ u ∈ tokens i.node, u.Spelled := by
  simp only [braced, Item.tokens, List.forall_mem_cons, List.forall_mem_append,
    List.forall_mem_flatMap] at spelled
  exact fun i listed => (spelled.2.1 i listed).1

theorem event_sound {t : TriggerTree} (admissible : t.Admissible)
    (spelled : ∀ u ∈ t.tokens, u.Spelled) : t.event.Sound := by
  obtain ⟨-, time, block⟩ : _ ∧ _ ∧ _ := by
    simpa only [TriggerTree.tokens, List.forall_mem_cons] using spelled
  constructor
  · exact time.isLength admissible.time
  · intro f listed
    obtain ⟨c, inside, same⟩ := List.mem_map.1 listed
    cases same
    exact fade_sound (admissible.commands c inside) (spelled_of_braced block c inside)

section Scenes

variable {t : SceneTree} {s : Scene}

theorem property_spelled (spelled : ∀ u ∈ t.tokens, u.Spelled) :
    (Token.text t.title).Spelled ∧ ∀ p ∈ t.properties, ∀ u ∈ p.tokens, u.Spelled := by
  simp only [SceneTree.tokens, braced, List.forall_mem_cons, List.forall_mem_append,
    List.forall_mem_flatMap] at spelled
  exact ⟨spelled.2.1, spelled.2.2.2.1⟩

theorem exists_property {α : Type} {kind : PropertyTree → Option α} {a : α}
    (last : t.last? kind = some a) : ∃ p ∈ t.properties, kind p = some a :=
  List.mem_filterMap.1 (List.mem_of_getLast? last)

theorem visuals_spelled (admissible : t.Admissible) (spelled : ∀ u ∈ t.tokens, u.Spelled)
    {items : List (Item ElementTree)} (last : t.last? PropertyTree.visuals? = some items) :
    ∀ i ∈ items, i.node.Admissible ∧ ∀ u ∈ i.node.tokens, u.Spelled := by
  obtain ⟨p, listed, kind⟩ := exists_property last
  have tokens := (property_spelled spelled).2 p listed
  have allowed := admissible.properties p listed
  cases p with
  | visuals elements =>
    cases kind
    obtain ⟨-, -, block⟩ : _ ∧ _ ∧ _ := by
      simpa only [PropertyTree.tokens, List.forall_mem_cons] using tokens
    exact fun i inside => ⟨allowed i inside, spelled_of_braced block i inside⟩
  | duration | narration | timeline => cases kind

theorem timeline_sound (admissible : t.Admissible) (spelled : ∀ u ∈ t.tokens, u.Spelled)
    {items : List (Item TriggerTree)} (last : t.last? PropertyTree.timeline? = some items) :
    ∀ i ∈ items, i.node.event.Sound := by
  obtain ⟨p, listed, kind⟩ := exists_property last
  have tokens := (property_spelled spelled).2 p listed
  have allowed := admissible.properties p listed
  cases p with
  | timeline triggers =>
    cases kind
    obtain ⟨-, -, block⟩ : _ ∧ _ ∧ _ := by
      simpa only [PropertyTree.tokens, List.forall_mem_cons] using tokens
    exact fun i inside => event_sound (allowed i inside) (spelled_of_braced block i inside)
  | duration | narration | visuals => cases kind

theorem duration_isLength (admissible : t.Admissible) (spelled : ∀ u ∈ t.tokens, u.Spelled)
    {secs : Float} (last : t.last? PropertyTree.duration? = some secs) : IsLength secs := by
  obtain ⟨p, listed, kind⟩ := exists_property last
  have tokens := (property_spelled spelled).2 p listed
  have nonneg := admissible.properties p listed
  cases p with
  | duration declared =>
    cases kind
    exact (tokens (.duration secs) (by simp [PropertyTree.tokens])).isLength nonneg
  | narration | visuals | timeline => cases kind

theorem narration_unquoted (spelled : ∀ u ∈ t.tokens, u.Spelled) {body : String}
    (last : t.last? PropertyTree.narration? = some body) : Unquoted body := by
  obtain ⟨p, listed, kind⟩ := exists_property last
  have tokens := (property_spelled spelled).2 p listed
  cases p with
  | narration text =>
    cases kind
    exact (tokens (.text body) (by simp [PropertyTree.tokens])).unquoted
  | duration | visuals | timeline => cases kind

theorem scene?_eq_some : t.scene? = some s ↔ ∃ secs elements,
    t.last? PropertyTree.duration? = some secs ∧
    ((t.last? PropertyTree.visuals?).getD []).mapM (·.node.element?) = some elements ∧
    s = ⟨t.title, secs, t.last? PropertyTree.narration?, elements,
      ((t.last? PropertyTree.timeline?).getD []).map (·.node.event)⟩ := by
  simp only [SceneTree.scene?, Option.bind_eq_bind, Option.bind_eq_some_iff, Option.pure_def,
    Option.some.injEq]
  constructor
  · rintro ⟨secs, duration, elements, values, rfl⟩
    exact ⟨secs, elements, duration, values, rfl⟩
  · rintro ⟨secs, elements, duration, values, rfl⟩
    exact ⟨secs, duration, elements, values, rfl⟩

theorem scene_sound (admissible : t.Admissible) (denotes : t.scene? = some s)
    (spelled : ∀ u ∈ t.tokens, u.Spelled) : s.Sound := by
  obtain ⟨secs, elements, duration, values, rfl⟩ := scene?_eq_some.1 denotes
  refine ⟨(property_spelled spelled).1.unquoted, duration_isLength admissible spelled duration,
    fun body last => narration_unquoted spelled last, fun e listed => ?_, fun e listed => ?_⟩
  · obtain ⟨i, inside, element⟩ := exists_of_mapM values listed
    cases last : t.last? PropertyTree.visuals? with
    | none =>
      rw [last] at inside
      cases inside
    | some items =>
      rw [last] at inside
      obtain ⟨allowed, tokens⟩ := visuals_spelled admissible spelled last i inside
      exact element_sound allowed element tokens
  · obtain ⟨i, inside, rfl⟩ := List.mem_map.1 listed
    cases last : t.last? PropertyTree.timeline? with
    | none =>
      rw [last] at inside
      cases inside
    | some items =>
      rw [last] at inside
      exact timeline_sound admissible spelled last i inside

end Scenes

theorem one_le_of_inPixels {value : Float} {n : UInt32} (inside : Dimensions.InPixels value)
    (pixels : Dimensions.pixels? value = some n) : 1 ≤ n := by
  obtain ⟨k, value_eq, pos, bound⟩ := inside
  rw [Dimensions.pixels?, value_eq] at pixels
  cases pixels
  rw [UInt32.le_iff_toNat_le]
  change 1 ≤ (UInt32.ofNat k).toNat
  rw [UInt32.toNat_ofNat_of_lt' bound]
  exact pos

theorem canvas_sound {d : Dimensions} {c : Canvas} (admissible : d.Admissible)
    (denotes : d.canvas? = some c) : 1 ≤ c.width ∧ 1 ≤ c.height := by
  simp only [Dimensions.canvas?, Option.bind_eq_bind, Option.bind_eq_some_iff, Option.pure_def,
    Option.some.injEq] at denotes
  obtain ⟨width, hw, height, hh, rfl⟩ := denotes
  exact ⟨one_le_of_inPixels admissible.width hw, one_le_of_inPixels admissible.height hh⟩

theorem program_sound {t : ScriptTree} {p : Program} (admissible : t.Admissible)
    (denotes : t.program? = some p) (spelled : ∀ u ∈ t.tokens, u.Spelled) : p.Sound := by
  obtain ⟨canvas, scenes⟩ := Reader.program?_eq_some.1 denotes
  obtain ⟨d, last, size⟩ := Option.bind_eq_some_iff.1 canvas
  obtain ⟨width, height⟩ := canvas_sound (admissible.sizes d (List.mem_of_getLast? last)) size
  obtain ⟨-, -, tokens⟩ : _ ∧ _ ∧ _ := by
    simpa only [ScriptTree.tokens, List.forall_mem_cons, List.forall_mem_append,
      List.forall_mem_flatMap] using spelled
  refine ⟨fun none => ?_, width, height, fun s listed => ?_⟩
  · have first := (Reader.forall₂_mapM_iff (P := fun _ => True)).2 ⟨fun _ _ => trivial, scenes⟩
    rw [none] at first
    cases first
  · obtain ⟨scene, inside, denotes⟩ := exists_of_mapM scenes listed
    exact scene_sound (admissible.scenes scene inside) denotes (tokens scene inside)

/-- A program that was parsed has sound values everywhere. -/
theorem sound_of_parse {source : String} {p : Program} (parsed : parse source = .ok p) :
    p.Sound := by
  have accepted : (parse source).isOk := by
    rw [parsed]
    rfl
  obtain ⟨s, q, scans, -⟩ := scans_of_parse accepted
  have read := (parse_eq_readProgram scans).1 parsed
  obtain ⟨t, ⟨admissible, denotes⟩, tokens⟩ :=
    (readProgram_eq_ok (scanned_of_scanText scans)).1 read
  refine program_sound admissible denotes ?_
  rw [tokens]
  exact spelled_of_scanText scans

end Script
end Storyboard
