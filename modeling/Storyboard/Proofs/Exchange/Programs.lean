import Storyboard.Proofs.Exchange.Records
import Storyboard.Exchange.Program

namespace Storyboard

open Json (Plain)

def Point.doubles (p : Point) : List Float :=
  [p.x, p.y]

def Figure.doubles : Figure → List Float
  | .text _ => []
  | .circle radius => [radius]

def Element.doubles (e : Element) : List Float :=
  e.anchor.doubles ++ e.figure.doubles

def Command.doubles : Command → List Float
  | .fade f => [f.duration]

def Event.doubles (e : Event) : List Float :=
  e.time :: e.commands.flatMap Command.doubles

def Scene.doubles (s : Scene) : List Float :=
  s.duration :: s.elements.flatMap Element.doubles ++ s.timeline.flatMap Event.doubles

def Program.doubles (p : Program) : List Float :=
  p.scenes.flatMap Scene.doubles

/-- The doubles of an item are among those of its list. -/
theorem finite_item {α : Type} {doubles : α → List Float} {items : List α} {a : α}
    (finite : ∀ x ∈ items.flatMap doubles, x.isFinite) (listed : a ∈ items) :
    ∀ x ∈ doubles a, x.isFinite :=
  fun x inside => finite x (List.mem_flatMap.2 ⟨a, listed, inside⟩)

theorem Point.ofJson?_toJson {p : Point} (finite : ∀ x ∈ p.doubles, x.isFinite) :
    Point.ofJson? p.toJson = some p := by
  rw [doubles, List.forall_mem_cons, List.forall_mem_singleton] at finite
  apply Json.record?_bind
  apply Json.read?_bind rfl (Json.double?_ofFloat finite.1)
  exact Json.read?_bind rfl (Json.double?_ofFloat finite.2) rfl

theorem Canvas.ofJson?_toJson (c : Canvas) : Canvas.ofJson? c.toJson = some c := by
  apply Json.record?_bind
  apply Json.read?_bind rfl (Json.word32?_ofWord32 c.width)
  exact Json.read?_bind rfl (Json.word32?_ofWord32 c.height) rfl

theorem Figure.ofJson?_toJson {f : Figure} (finite : ∀ x ∈ f.doubles, x.isFinite) :
    Figure.ofJson? f.toJson = some f := by
  cases f with
  | text content =>
    apply Json.tagged?_bind (by simp)
    dsimp only
    rw [if_pos rfl]
    apply Json.record?_bind
    exact Json.read?_bind rfl (Json.text?_string content) rfl
  | circle radius =>
    rw [doubles, List.forall_mem_singleton] at finite
    apply Json.tagged?_bind (by simp)
    dsimp only
    rw [if_neg (by decide), if_pos rfl]
    apply Json.record?_bind
    exact Json.read?_bind rfl (Json.double?_ofFloat finite) rfl

theorem Element.ofJson?_toJson {e : Element} (finite : ∀ x ∈ e.doubles, x.isFinite) :
    Element.ofJson? e.toJson = some e := by
  rw [doubles, List.forall_mem_append] at finite
  apply Json.record?_bind
  apply Json.read?_bind rfl (Json.text?_string e.id)
  apply Json.read?_bind rfl (Point.ofJson?_toJson finite.1)
  exact Json.read?_bind rfl (Figure.ofJson?_toJson finite.2) rfl

theorem Direction.ofJson?_toJson (d : Direction) : Direction.ofJson? d.toJson = some d := by
  cases d <;> rfl

theorem Command.ofJson?_toJson {c : Command} (finite : ∀ x ∈ c.doubles, x.isFinite) :
    Command.ofJson? c.toJson = some c := by
  obtain ⟨target, direction, duration⟩ := c
  rw [doubles, List.forall_mem_singleton] at finite
  apply Json.tagged?_bind (by simp)
  dsimp only
  rw [if_pos rfl]
  apply Json.record?_bind
  apply Json.read?_bind rfl (Json.text?_string target)
  apply Json.read?_bind rfl (Direction.ofJson?_toJson direction)
  exact Json.read?_bind rfl (Json.double?_ofFloat finite) rfl

theorem Event.ofJson?_toJson {e : Event} (finite : ∀ x ∈ e.doubles, x.isFinite) :
    Event.ofJson? e.toJson = some e := by
  rw [doubles, List.forall_mem_cons] at finite
  apply Json.record?_bind
  apply Json.read?_bind rfl (Json.double?_ofFloat finite.1)
  have commands := Json.list?_ofList fun c listed =>
    Command.ofJson?_toJson (c := c) (finite_item finite.2 listed)
  exact Json.read?_bind rfl commands rfl

theorem Scene.ofJson?_toJson {s : Scene} (finite : ∀ x ∈ s.doubles, x.isFinite) :
    Scene.ofJson? s.toJson = some s := by
  rw [doubles, List.forall_mem_append, List.forall_mem_cons] at finite
  apply Json.record?_bind
  apply Json.read?_bind rfl (Json.text?_string s.title)
  apply Json.read?_bind rfl (Json.double?_ofFloat finite.1.1)
  apply Json.readOptional?_bind rfl (Json.nullable?_ofOption s.narration)
  have elements := Json.list?_ofList fun e listed =>
    Element.ofJson?_toJson (e := e) (finite_item finite.1.2 listed)
  apply Json.read?_bind rfl elements
  have timeline := Json.list?_ofList fun e listed =>
    Event.ofJson?_toJson (e := e) (finite_item finite.2 listed)
  exact Json.read?_bind rfl timeline rfl

/-- A program whose doubles are finite is read back from its JSON value, field by field. -/
theorem Program.ofJson?_toJson {p : Program} (finite : ∀ x ∈ p.doubles, x.isFinite) :
    Program.ofJson? p.toJson = some p := by
  have video : videoCanvas? (.object [("dimensions", p.canvas.toJson)]) = some p.canvas :=
    Json.record?_bind (Option.bind_eq_some_iff.2 ⟨_, rfl, Canvas.ofJson?_toJson p.canvas⟩)
  apply Json.record?_bind
  apply Json.read?_bind rfl video
  have scenes := Json.list?_ofList fun s listed =>
    Scene.ofJson?_toJson (s := s) (finite_item finite listed)
  exact Json.read?_bind rfl scenes rfl

theorem Point.plain_toJson (p : Point) : Plain p.toJson := by
  apply Json.plain_object
  simp only [List.forall_mem_cons]
  exact ⟨Json.plain_ofFloat p.x, Json.plain_ofFloat p.y, List.forall_mem_nil _⟩

theorem Canvas.plain_toJson (c : Canvas) : Plain c.toJson := by
  apply Json.plain_object
  simp only [List.forall_mem_cons]
  exact ⟨Json.plain_ofWord32 c.width, Json.plain_ofWord32 c.height, List.forall_mem_nil _⟩

theorem Figure.plain_toJson (f : Figure) : Plain f.toJson := by
  cases f with
  | text content =>
    apply Json.plain_ofTagged
    rw [List.forall_mem_singleton]
    exact Json.plain_string content
  | circle radius =>
    apply Json.plain_ofTagged
    rw [List.forall_mem_singleton]
    exact Json.plain_ofFloat radius

theorem Element.plain_toJson (e : Element) : Plain e.toJson := by
  apply Json.plain_object
  simp only [List.forall_mem_cons]
  exact ⟨Json.plain_string e.id, e.anchor.plain_toJson, e.figure.plain_toJson,
    List.forall_mem_nil _⟩

theorem Command.plain_toJson (c : Command) : Plain c.toJson := by
  obtain ⟨target, direction, duration⟩ := c
  apply Json.plain_ofTagged
  simp only [List.forall_mem_cons]
  exact ⟨Json.plain_string target, Json.plain_string direction.word, Json.plain_ofFloat duration,
    List.forall_mem_nil _⟩

theorem Event.plain_toJson (e : Event) : Plain e.toJson := by
  apply Json.plain_object
  simp only [List.forall_mem_cons]
  exact ⟨Json.plain_ofFloat e.time, Json.plain_ofList Command.plain_toJson e.commands,
    List.forall_mem_nil _⟩

theorem Scene.plain_toJson (s : Scene) : Plain s.toJson := by
  apply Json.plain_object
  simp only [List.forall_mem_cons]
  exact ⟨Json.plain_string s.title, Json.plain_ofFloat s.duration,
    Json.plain_ofOption Json.plain_string s.narration,
    Json.plain_ofList Element.plain_toJson s.elements,
    Json.plain_ofList Event.plain_toJson s.timeline, List.forall_mem_nil _⟩

/-- Nothing in a program is written as a number that a JSON text cannot hold: doubles that are not
finite become null. -/
theorem Program.plain_toJson (p : Program) : Plain p.toJson := by
  apply Json.plain_object
  simp only [List.forall_mem_cons]
  refine ⟨Json.plain_object ?_, Json.plain_ofList Scene.plain_toJson p.scenes,
    List.forall_mem_nil _⟩
  rw [List.forall_mem_singleton]
  exact p.canvas.plain_toJson

/-- Both texts of a program with finite doubles denote its JSON value, and either is read back as
the program itself. -/
theorem Program.round_trip {p : Program} (finite : ∀ x ∈ p.doubles, x.isFinite) :
    Json.parse? p.toJson.compact.toList = some p.toJson ∧
    Json.parse? p.toJson.pretty.toList = some p.toJson ∧
    (Json.parse? p.toJson.compact.toList).bind Program.ofJson? = some p ∧
    (Json.parse? p.toJson.pretty.toList).bind Program.ofJson? = some p := by
  have compact : Json.parse? p.toJson.compact.toList = some p.toJson := by
    rw [Json.compact, String.toList_ofList]
    exact Json.parse?_compactText p.plain_toJson
  have pretty : Json.parse? p.toJson.pretty.toList = some p.toJson := by
    rw [Json.pretty, String.toList_ofList]
    exact Json.parse?_prettyText p.plain_toJson
  have read := Program.ofJson?_toJson finite
  exact ⟨compact, pretty, Option.bind_eq_some_iff.2 ⟨_, compact, read⟩,
    Option.bind_eq_some_iff.2 ⟨_, pretty, read⟩⟩

/-- A program whose texts need escapes, with a tenth and a negative zero. -/
def Program.escaped : Program where
  canvas := ⟨640, 480⟩
  scenes := [{
    title := "\"Ünïcode\"\n\\"
    duration := 0.1
    narration := none
    elements := [⟨"dot", ⟨-0.0, 1e-300⟩, .circle 2.5⟩]
    timeline := [⟨0.0, [.fade ⟨"dot", .fadeOut, 3.0⟩]⟩] }]

theorem Program.escaped_round_trip : (∀ x ∈ escaped.doubles, x.isFinite) ∧
    (Json.parse? escaped.toJson.compact.toList).bind Program.ofJson? = some escaped ∧
    (Json.parse? escaped.toJson.pretty.toList).bind Program.ofJson? = some escaped :=
  have finite : ∀ x ∈ escaped.doubles, x.isFinite := by decide +kernel
  ⟨finite, (Program.round_trip finite).2.2⟩

end Storyboard
